/-
This file is about a supervisor of one channel. It sees the calls on the channel and whether a
callback has thrown, and it knows from that the generation and the fault of the channel: the
channel is a lease that successful resets renew and that callbacks fail.
-/

import ProtocolAdapter.Foundation.Lease
import ProtocolAdapter.PublicApi.AsciiRecords
import ProtocolAdapter.PublicApi.HostRuns

namespace ProtocolAdapter.PublicApi

open Foundation Description

open ConfigCompiler (compileJsonToPlanWithMetadata)

section

variable {σ : Type}

/-- What a supervisor sees of an event on a channel: a successful reset renews the channel, and a
callback that throws fails it. -/
def channelEvent (index : Nat) (event : HostCall σ × HostOutcome σ) : LeaseEvent :=
  if event.1.request.handle.map (·.channelIndex) = some index then
    match event.1.request with
    | .reset _ => if event.2.reply.hostStatus = .ok then .renewed else .nothing
    | _ => if event.2.threw then .failed else .nothing
  else .nothing

/-- The lease of a channel. -/
def HostChannel.lease (channel : HostChannel) : Lease := ⟨channel.generation, channel.faulted⟩

/-- The lease of the channel at an index, when there is one. -/
def HostEndpoint.leaseAt (index : Nat) (host : HostEndpoint) : Option Lease :=
  host.channels[index]?.map HostChannel.lease

/-! ### One call -/

section

variable {host next : HostEndpoint} {call : HostCall σ} {outcome : HostOutcome σ} {index : Nat}

theorem channelEvent_elsewhere {handle : HostChannelHandle}
    (request : call.request.handle = some handle) (other : handle.channelIndex ≠ index) :
    channelEvent index (call, outcome) = .nothing := by
  unfold channelEvent
  rw [request, if_neg]
  exact fun same => other (Option.some.inj same)

theorem channelEvent_renewed {handle : HostChannelHandle} (request : call.request = .reset handle)
    (here : handle.channelIndex = index) (answered : outcome.reply.hostStatus = .ok) :
    channelEvent index (call, outcome) = .renewed := by
  unfold channelEvent
  rw [if_pos]
  · simp only [request, answered, if_true]
  · rw [request]
    exact congrArg some here

theorem channelEvent_operation {handle : HostChannelHandle}
    (request : call.request.handle = some handle) (here : handle.channelIndex = index)
    (operation : ∀ handle, call.request ≠ .reset handle) :
    channelEvent index (call, outcome) = if outcome.threw then .failed else .nothing := by
  unfold channelEvent
  rw [if_pos]
  · dsimp only
    split
    · exact absurd ‹_› (operation _)
    · rfl
  · rw [request]
    exact congrArg some here

/-- A call that does nothing is nothing to see. -/
theorem channelEvent_quiet {reply : HostReply} {memory : σ}
    (unreset : ∀ handle, call.request = .reset handle → reply.hostStatus ≠ .ok) :
    channelEvent index (call, { reply := reply, memory := memory }) = .nothing := by
  unfold channelEvent
  split
  · dsimp only
    split
    · rw [if_neg (unreset _ ‹_›)]
    · rfl
  · rfl

/-- Only a reset is not an operation on a channel. -/
theorem Works.operates {scopes : List Nat} {channel : HostChannel} {binding : HostBinding}
    {attempt : HostAttempt σ} {encoded : Option (HostOutputView × CallbackEnd)}
    (works : Works scopes index channel binding call attempt encoded) :
    ∀ handle, call.request ≠ .reset handle := by
  intro handle reset
  cases works with
  | decoded request => rw [reset] at request; cases request
  | pushed submits => rw [reset] at submits; cases submits
  | unencoded request => rw [reset] at request; cases request
  | encoded request => rw [reset] at request; cases request

theorem leaseAt_withChannel {place : Nat} {channel renewed : HostChannel}
    (found : host.channels[place]? = some channel) :
    (host.withChannel place renewed).leaseAt index =
      if place = index then some renewed.lease else host.leaseAt index := by
  unfold HostEndpoint.leaseAt HostEndpoint.withChannel
  dsimp only
  split
  · rename_i same
    rw [← same, List.getElem?_set_self (List.getElem?_eq_some_iff.mp found).1]
    rfl
  · rename_i other
    rw [List.getElem?_set_ne other]

/-- What a call does to a lease is what the supervisor sees. -/
theorem leaseAt_step (live : host.Live) (ran : host.call call = some (outcome, next)) :
    next.leaseAt index =
      (host.leaseAt index).map (·.after (channelEvent index (call, outcome))) := by
  have unchanged : ∀ {lease : Option Lease}, lease = lease.map (·.after .nothing) := by
    intro lease
    cases lease <;> rfl
  cases call_stepped ran with
  | quiet unreset =>
    rw [channelEvent_quiet unreset]
    exact unchanged
  | @renewed handle place channel request resolved fresh reframed =>
    obtain ⟨found, named, -⟩ := HostEndpoint.resolve_found resolved
    rw [leaseAt_withChannel found]
    split
    · rename_i here
      rw [channelEvent_renewed request (named.symm.trans here) rfl]
      unfold HostEndpoint.leaseAt
      rw [← here, found]
      rfl
    · rename_i other
      rw [channelEvent_elsewhere (by rw [request]; rfl) (named ▸ other)]
      exact unchanged
  | stuck request resolved framing failed =>
    obtain ⟨found, -⟩ := HostEndpoint.resolve_found resolved
    exact absurd (live.reframed (List.mem_of_getElem? found) framing) failed
  | @worked handle place channel binding attempt encoded request free resolved bound working
      works =>
    obtain ⟨found, named, -⟩ := HostEndpoint.resolve_found resolved
    rw [leaseAt_withChannel found]
    split
    · rename_i here
      obtain ⟨-, generation, faulted⟩ := works.leaves
      rw [channelEvent_operation request (named.symm.trans here) works.operates]
      unfold HostEndpoint.leaseAt HostChannel.lease
      rw [← here, found, generation, faulted, working]
      cases (attempt.outcome encoded).threw <;> simp [Lease.after, working]
    · rename_i other
      rw [channelEvent_elsewhere request (named ▸ other)]
      exact unchanged

end

/-! ### Runs -/

section

variable {host last : HostEndpoint} {specs : List HostBindingSpec} {index : Nat}

/-- A host makes calls as the machine of its calls does. -/
theorem HostEndpoint.run_eq (calls : List (HostCall σ)) : ∀ host : HostEndpoint,
    host.run calls = Machine.run HostEndpoint.call host calls := by
  induction calls with
  | nil => exact fun host => rfl
  | cons call rest inductionHypothesis =>
    intro host
    unfold HostEndpoint.run Machine.run
    simp only [inductionHypothesis]

theorem foldl_after (seen : HostCall σ × HostOutcome σ → LeaseEvent)
    (events : List (HostCall σ × HostOutcome σ)) : ∀ lease : Option Lease,
    events.foldl (fun lease event => lease.map (·.after (seen event))) lease =
      lease.map (·.through (events.map seen)) := by
  induction events with
  | nil => exact fun lease => Option.map_id'.symm ▸ rfl
  | cons event rest inductionHypothesis =>
    intro lease
    rw [List.foldl_cons, inductionHypothesis]
    cases lease <;> rfl

/-- A run takes a lease through what the supervisor sees. -/
theorem leaseAt_trace {events : List (HostCall σ × HostOutcome σ)} (live : host.Live)
    (trace : Trace HostEndpoint.call host events last) :
    last.Live ∧
      last.leaseAt index =
        (host.leaseAt index).map (·.through (events.map (channelEvent index))) := by
  obtain ⟨after, seen⟩ := @Trace.observed _ _ _ HostEndpoint.call host last HostEndpoint.Live _
    (HostEndpoint.leaseAt index)
    (fun lease event => lease.map (·.after (channelEvent index event)))
    (fun live ran => ⟨live.step ran, leaseAt_step live ran⟩) events trace live
  exact ⟨after, seen.trans (foldl_after (channelEvent index) events _)⟩

/-- A lease of a created host starts new. -/
theorem HostEndpoint.Created.leaseAt (created : host.Created specs) {channel : HostChannel}
    (found : host.channels[index]? = some channel) : host.leaseAt index = some {} := by
  obtain ⟨generation, working⟩ := created.starts channel (List.mem_of_getElem? found)
  unfold HostEndpoint.leaseAt HostChannel.lease
  rw [found, Option.map_some, generation, working]

/-- The calls of a run with their outcomes are a trace. -/
theorem run_trace {calls : List (HostCall σ)} {outcomes : List (HostOutcome σ)}
    (run : host.run calls = some (outcomes, last)) :
    Trace HostEndpoint.call host (calls.zip outcomes) last := by
  rw [HostEndpoint.run_eq] at run
  exact (Machine.run_trace run).2

/-- An operation on a faulted channel does nothing. -/
theorem call_faulted {next : HostEndpoint} {call : HostCall σ} {outcome : HostOutcome σ}
    {channel : HostChannel} {handle : HostChannelHandle}
    (found : host.channels[handle.channelIndex]? = some channel) (faulted : channel.faulted = true)
    (request : call.request.handle = some handle)
    (operation : ∀ handle, call.request ≠ .reset handle)
    (ran : host.call call = some (outcome, next)) :
    next = host ∧ outcome.handled = [] ∧ outcome.encoded = none ∧ outcome.memory = call.memory ∧
      ∀ result, outcome.reply = .operation result → result.Untouched := by
  cases call_stepped ran with
  | quiet unreset untouched => exact ⟨rfl, rfl, rfl, rfl, untouched⟩
  | renewed reset => exact absurd reset (operation _)
  | stuck reset => exact absurd reset (operation _)
  | worked named free resolved bound working works =>
    obtain ⟨held, place, -⟩ := HostEndpoint.resolve_found resolved
    obtain rfl := Option.some.inj (request.symm.trans named)
    rw [place, found] at held
    obtain rfl := Option.some.inj held
    rw [faulted] at working
    cases working

end

/-! ### Handles -/

section

variable {host : HostEndpoint} {handle : HostChannelHandle} {alive : Nat → Bool}

/-- A host resolves its own handles by their generations. -/
theorem HostEndpoint.resolve_own (assigned : handle.assigned = true)
    (own : handle.scope = host.scope) {channel : HostChannel}
    (found : host.channels[handle.channelIndex]? = some channel) :
    host.resolve alive handle =
      if handle.generation = channel.generation then .ok (handle.channelIndex, channel)
      else .error .staleHandle := by
  unfold HostEndpoint.resolve
  rw [if_neg (by simp [assigned]), if_neg (not_not.mpr own), found]
  dsimp only
  rw [ite_not]

/-- A host resolves no handle of another one. -/
theorem HostEndpoint.resolve_other (assigned : handle.assigned = true)
    (other : handle.scope ≠ host.scope) :
    host.resolve alive handle =
      .error (if alive handle.scope then .foreignHandle else .expiredHandle) := by
  unfold HostEndpoint.resolve
  rw [if_neg (by simp [assigned]), if_pos other]

/-- A handle that resolves was assigned. -/
theorem HostEndpoint.resolve_assigned {resolved : Nat × HostChannel}
    (names : host.resolve alive handle = .ok resolved) : handle.assigned = true := by
  unfold HostEndpoint.resolve at names
  split at names
  · cases names
  · exact Bool.eq_true_of_not_eq_false ‹_›

/-- A call whose handle does not resolve is answered why, and does nothing. -/
theorem call_unresolved {call : HostCall σ} {status : HostStatus}
    (free : call.context.refusal host.scope = none) (request : call.request.handle = some handle)
    (unresolved : host.resolve call.context.alive handle = .error status) :
    host.call call =
      some ({ reply := call.request.refused status, memory := call.memory }, host) := by
  obtain ⟨requested, callbacks, memory, context⟩ := call
  dsimp only at free request unresolved
  cases requested with
  | find => cases request
  | _ =>
    obtain rfl := Option.some.inj request
    simp [HostEndpoint.call, HostEndpoint.observe, HostEndpoint.reset, HostEndpoint.decode,
      HostEndpoint.push, HostEndpoint.continue, HostEndpoint.encode, free, unresolved,
      HostRequest.refused, HostEndpoint.refuse, OperationEnd.outcome]

theorem refusal_ne_ok (context : CallContext) (owner : Nat) : context.refusal owner ≠ some .ok := by
  unfold CallContext.refusal
  split
  · decide
  split <;> decide

/-- A handle that is found is one for a channel of the host. -/
theorem find_found {context : CallContext} {endpointKey : List UInt8} {action : HostAction}
    {decodeStreamIndex : Nat}
    (answered : host.find context endpointKey action decodeStreamIndex =
      some { status := .ok, handle := handle }) :
    handle.assigned = true ∧ handle.scope = host.scope ∧ ∃ channel,
      host.channels[handle.channelIndex]? = some channel ∧
        handle.generation = channel.generation := by
  unfold HostEndpoint.find at answered
  split at answered
  · rename_i status refusal
    cases answered
    exact absurd refusal (refusal_ne_ok context host.scope)
  split at answered
  · cases answered
  split at answered
  · cases answered
  split at answered
  · cases answered
  obtain ⟨channel, found, answered⟩ := Option.bind_eq_some_iff.mp answered
  cases answered
  exact ⟨rfl, rfl, channel, found, rfl⟩

end

/-! ### A host -/

/-- A binding that decodes two inputs, and one that encodes. -/
def pingSpecs : List HostBindingSpec :=
  [{ endpointKey := [1], decodeStreamCount := 2 }, { endpointKey := [1], action := .encode }]

def pingSizes : HostSizes where
  hostEndpoint := 8
  impl := 256
  scopeToken := 16
  compiledState := 64
  binding := 96
  channel := 128
  index := 8
  codec := ⟨8, 256, 64⟩
  framer := ⟨8, 256, 64⟩

/-- An allocator that never fails. -/
def readyAllocator : HostAllocator where
  tables := .allocated 0
  binding := fun _ => .allocated 0
  codec := fun index => .allocated (4096 * index) 4096
  framer := fun index => .allocated (65536 + 4096 * index)
  buffer := fun index => .allocated index
  endpoint := .allocated 0

def pingHost : Option HostEndpoint :=
  (compileJsonToPlanWithMetadata pingEnvironment maxUint64 []).toOption.bind fun state =>
    (createHostEndpoint pingSizes readyAllocator 7 (some state) pingSpecs {}).bind (·.host)

/-- A record that is decoded, with a sink that takes it. -/
def pingCall : HostCall Unit where
  request := .decode ⟨7, 0, 1, true⟩ ⟨some 65536, [80, 49]⟩
  callbacks := { sink := some fun _ memory _ _ => (.returned .continue, memory) }
  memory := ()

/-- The record again, with a sink that throws. -/
def pingFault : HostCall Unit :=
  { pingCall with callbacks := { sink := some fun _ memory _ _ => (.threw, memory) } }

/-- A record on the second channel. -/
def pingOther : HostCall Unit :=
  { pingCall with request := .decode ⟨7, 1, 1, true⟩ ⟨some 65536, [80, 50]⟩ }

/-- A reset of the first channel. -/
def pingReset : HostCall Unit where
  request := .reset ⟨7, 0, 1, true⟩
  memory := ()

/-- The outcomes of a run, as a supervisor of a channel sees them. -/
def HostEndpoint.eventsOf (host : HostEndpoint) (index : Nat) (calls : List (HostCall Unit)) :
    Option (List LeaseEvent) :=
  (host.run calls).map fun ended => (calls.zip ended.1).map (channelEvent index)

/-- The sample host, and what some calls do to its first channel. -/
theorem ping_created : ∃ host : HostEndpoint, host.Created pingSpecs ∧
    host.channels.length = 3 ∧
      host.find {} [1] .decode 0 = some { status := .ok, handle := ⟨7, 0, 1, true⟩ } ∧
      host.eventsOf 0 [pingReset] = some [.renewed] ∧ host.eventsOf 0 [pingFault] = some [.failed] ∧
      host.eventsOf 0 [pingFault, pingReset] = some [.failed, .renewed] ∧
      host.eventsOf 0 [pingFault, pingOther, pingReset] = some [.failed, .nothing, .renewed] := by
  have facts : pingHost.map (fun host => (host.channels.length, host.find {} [1] .decode 0,
      [[pingReset], [pingFault], [pingFault, pingReset], [pingFault, pingOther, pingReset]].map
        (host.eventsOf 0))) =
        some (3, some { status := .ok, handle := ⟨7, 0, 1, true⟩ },
          [some [.renewed], some [.failed], some [.failed, .renewed],
            some [.failed, .nothing, .renewed]]) := by
    decide +kernel
  obtain ⟨host, made, facts⟩ := Option.map_eq_some_iff.mp facts
  obtain ⟨count, facts⟩ := Prod.mk.inj facts
  obtain ⟨answered, events⟩ := Prod.mk.inj facts
  simp only [List.map_cons, List.map_nil, List.cons.injEq, and_true] at events
  unfold pingHost at made
  exact ⟨host, .of_option made, count, answered, events⟩

/-! ### Generations and faults -/

section

variable {host last : HostEndpoint} {specs : List HostBindingSpec} {index : Nat}

/-- After any calls of a created host, the generation of a channel is one more than the number of
its successful resets, and it is faulted exactly when a callback of an operation on it has thrown
behind the last of these. While it is faulted, its operations do nothing. -/
theorem channel_supervised (created : host.Created specs) {calls : List (HostCall σ)}
    {outcomes : List (HostOutcome σ)} (run : host.run calls = some (outcomes, last))
    {channel : HostChannel} (found : last.channels[index]? = some channel) :
    channel.generation = 1 + ((calls.zip outcomes).map (channelEvent index)).count .renewed ∧
    (channel.faulted = true ↔ ∃ earlier later,
      (calls.zip outcomes).map (channelEvent index) = earlier ++ .failed :: later ∧
        LeaseEvent.renewed ∉ later) ∧
    (channel.faulted = true → ∀ (call : HostCall σ) handle,
      call.request.handle = some handle → handle.channelIndex = index →
        (∀ handle, call.request ≠ .reset handle) → ∀ outcome next,
          last.call call = some (outcome, next) → next = last ∧ outcome.handled = [] ∧
            outcome.encoded = none ∧ outcome.memory = call.memory ∧
              ∀ result, outcome.reply = .operation result → result.Untouched) := by
  have seen := (@leaseAt_trace σ host last index _ created.live (run_trace run)).2
  obtain ⟨_, _, again, follows⟩ := run_ends calls created.live.valid
  rw [run] at again
  cases again
  have inside := (List.getElem?_eq_some_iff.mp found).1
  rw [follows.count] at inside
  rw [created.leaseAt (List.getElem?_eq_getElem inside), Option.map_some] at seen
  unfold HostEndpoint.leaseAt at seen
  rw [found] at seen
  have lease : channel.lease = _ := Option.some.inj seen
  refine ⟨?_, ?_, ?_⟩
  · have generation := congrArg Lease.generation lease
    rw [Lease.through_generation] at generation
    exact generation
  · have faulted := congrArg (·.faulted = true) lease
    refine (iff_of_eq faulted).trans ((Lease.through_faulted _ _).trans ?_)
    simp
  · rintro faulted call handle request rfl operation outcome next ran
    exact call_faulted found faulted request operation ran

/-- Behind a fault before the last reset there is a reset. -/
theorem renewed_behind (events : List LeaseEvent) {earlier later : List LeaseEvent}
    (same : events ++ [.renewed] = earlier ++ .failed :: later) : .renewed ∈ later := by
  rcases List.eq_nil_or_concat later with rfl | ⟨front, event, rfl⟩
  · cases (List.append_inj' same rfl).2
  · rw [List.concat_eq_append] at same ⊢
    rw [← List.cons_append, ← List.append_assoc] at same
    cases (List.append_inj' same rfl).2
    exact List.mem_append_right front (List.mem_singleton_self _)

/-- A sink that throws leaves its channel faulted, and a reset renews it. -/
theorem channel_supervised_ping : ∃ (host last : HostEndpoint) (outcomes : List (HostOutcome Unit))
    (channel : HostChannel),
    host.Created pingSpecs ∧
    host.run [pingFault, pingReset] = some (outcomes, last) ∧
    ([pingFault, pingReset].zip outcomes).map (channelEvent 0) = [.failed, .renewed] ∧
    last.channels[0]? = some channel ∧ channel.generation = 2 ∧ channel.faulted = false ∧
    ∃ (middle : HostEndpoint) (first : List (HostOutcome Unit)) (faulted : HostChannel),
      host.run [pingFault] = some (first, middle) ∧ middle.channels[0]? = some faulted ∧
        faulted.faulted = true := by
  obtain ⟨host, created, count, -, -, faults, renews, -⟩ := ping_created
  obtain ⟨⟨first, middle⟩, fault, failed⟩ := Option.map_eq_some_iff.mp faults
  obtain ⟨⟨outcomes, last⟩, run, events⟩ := Option.map_eq_some_iff.mp renews
  have through : ∀ {calls : List (HostCall Unit)} {outcomes : List (HostOutcome Unit)}
      {last : HostEndpoint}, host.run calls = some (outcomes, last) →
      last.channels[0]?.isSome = true := by
    intro calls outcomes last run
    obtain ⟨_, _, again, follows⟩ := run_ends calls created.live.valid
    rw [run] at again
    cases again
    rw [List.getElem?_eq_getElem (by rw [follows.count, count]; decide)]
    rfl
  obtain ⟨faulted, held⟩ := Option.isSome_iff_exists.mp (through fault)
  obtain ⟨channel, found⟩ := Option.isSome_iff_exists.mp (through run)
  obtain ⟨generation, renewed, -⟩ := channel_supervised created run found
  refine ⟨host, last, outcomes, channel, created, run, events, found, ?_, ?_, middle, first,
    faulted, fault, held, ?_⟩
  · rw [generation, events]
    rfl
  · refine Bool.eq_false_of_not_eq_true fun fault => ?_
    obtain ⟨earlier, later, same, unrenewed⟩ := renewed.mp fault
    rw [events] at same
    exact unrenewed (renewed_behind [.failed] same)
  · exact (channel_supervised created fault held).2.1.mpr ⟨[], [], failed, by decide⟩

/-- A handle that was found is good for every later call until its channel is reset, stale from
then on, and of no use for another host. -/
theorem found_handle_lives (created : host.Created specs) {middle : HostEndpoint}
    {before calls : List (HostCall σ)} {earlier outcomes : List (HostOutcome σ)}
    (first : host.run before = some (earlier, middle)) {context : CallContext}
    {endpointKey : List UInt8} {action : HostAction} {decodeStreamIndex : Nat}
    {handle : HostChannelHandle}
    (answered : middle.find context endpointKey action decodeStreamIndex =
      some { status := .ok, handle := handle })
    (run : middle.run calls = some (outcomes, last)) :
    (.renewed ∉ (calls.zip outcomes).map (channelEvent handle.channelIndex) → ∀ alive,
      ∃ channel, last.resolve alive handle = .ok (handle.channelIndex, channel)) ∧
    (.renewed ∈ (calls.zip outcomes).map (channelEvent handle.channelIndex) →
      ∀ call : HostCall σ, call.context.refusal last.scope = none →
        call.request.handle = some handle → last.call call =
          some ({ reply := call.request.refused .staleHandle, memory := call.memory }, last)) ∧
    (∀ other : HostEndpoint, other.scope ≠ host.scope → ∀ call : HostCall σ,
      call.context.refusal other.scope = none → call.request.handle = some handle →
        other.call call = some ({
          reply := call.request.refused
            (if call.context.alive host.scope then .foreignHandle else .expiredHandle)
          memory := call.memory }, other)) := by
  obtain ⟨live, -⟩ := @leaseAt_trace σ host middle 0 _ created.live (run_trace first)
  obtain ⟨_, _, again, reached⟩ := run_ends before created.live.valid
  rw [first] at again
  cases again
  obtain ⟨_, _, again, follows⟩ := run_ends calls live.valid
  rw [run] at again
  cases again
  obtain ⟨assigned, scope, channel, found, generation⟩ := find_found answered
  have own : handle.scope = last.scope := scope.trans follows.scope.symm
  have inside := (List.getElem?_eq_some_iff.mp found).1
  rw [← follows.count] at inside
  have held := List.getElem?_eq_getElem inside
  have seen := (@leaseAt_trace σ middle last handle.channelIndex _ live (run_trace run)).2
  unfold HostEndpoint.leaseAt at seen
  rw [held, found, Option.map_some, Option.map_some, Option.map_some] at seen
  have lease := congrArg Lease.generation (Option.some.inj seen)
  have current : last.channels[handle.channelIndex].generation = channel.generation ↔
      .renewed ∉ (calls.zip outcomes).map (channelEvent handle.channelIndex) :=
    (iff_of_eq (congrArg (· = channel.generation) lease)).trans
      (Lease.through_current channel.lease _)
  refine ⟨fun kept alive => ?_, fun reset call free request => ?_,
    fun other apart call free request => ?_⟩
  · refine ⟨last.channels[handle.channelIndex], ?_⟩
    rw [HostEndpoint.resolve_own assigned own held,
      if_pos (generation.trans (current.mpr kept).symm)]
  · refine call_unresolved free request ?_
    rw [HostEndpoint.resolve_own assigned own held, if_neg]
    exact fun same => current.mp (same.symm.trans generation) reset
  · refine call_unresolved free request ?_
    have issued : handle.scope = host.scope := scope.trans reached.scope
    rw [HostEndpoint.resolve_other assigned (issued ▸ apart.symm), issued]

/-- A handle that was found is stale behind a reset. -/
theorem found_handle_lives_ping : ∃ (host last : HostEndpoint) (outcomes : List (HostOutcome Unit)),
    host.Created pingSpecs ∧
    host.run [pingReset] = some (outcomes, last) ∧
    last.call pingCall =
      some ({ reply := .operation { status := .staleHandle }, memory := () }, last) := by
  obtain ⟨host, created, -, answered, facts, -⟩ := ping_created
  obtain ⟨⟨outcomes, last⟩, run, events⟩ := Option.map_eq_some_iff.mp facts
  have start : host.run ([] : List (HostCall Unit)) = some ([], host) := rfl
  have reset : .renewed ∈ ([pingReset].zip outcomes).map (channelEvent 0) := by
    rw [events]
    decide
  exact ⟨host, last, outcomes, created, run,
    (found_handle_lives created start answered run).2.1 reset pingCall rfl rfl⟩

end

end

end ProtocolAdapter.PublicApi
