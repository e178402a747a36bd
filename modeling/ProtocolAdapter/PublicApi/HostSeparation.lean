/-
This file puts the facts about the handles, the faults and the channels of a host together. After
any calls, handles go with the generations of their channels, faults with the callbacks that have
thrown, every channel runs as if it were alone, and callbacks can do nothing to their host.
-/

import ProtocolAdapter.PublicApi.HostReentry

namespace ProtocolAdapter.PublicApi

open Foundation Description

section

variable {σ : Type} {host next middle last : HostEndpoint} {specs : List HostBindingSpec}
  {calls : List (HostCall σ)} {outcomes : List (HostOutcome σ)} {index : Nat}

/-- A reset that does not succeed changes nothing. -/
theorem reset_unchanged (live : host.Live) {call : HostCall σ} {outcome : HostOutcome σ}
    {handle : HostChannelHandle} (request : call.request = .reset handle)
    (ran : host.call call = some (outcome, next)) (failed : outcome.reply.hostStatus ≠ .ok) :
    next = host := by
  cases call_stepped ran with
  | quiet => rfl
  | renewed => exact absurd rfl failed
  | stuck reset resolved framing stays =>
    obtain ⟨found, -⟩ := HostEndpoint.resolve_found resolved
    exact absurd (live.reframed (List.mem_of_getElem? found) framing) stays
  | worked named free resolved bound working works => exact absurd request (works.operates handle)

/-- The channel at an index after calls, and the lease it has gone through. -/
theorem channel_through (live : host.Live) (run : host.run calls = some (outcomes, last))
    {channel : HostChannel} (found : host.channels[index]? = some channel) :
    ∃ later, last.channels[index]? = some later ∧
      later.lease = channel.lease.through ((calls.zip outcomes).map (channelEvent index)) := by
  have seen := (@leaseAt_trace σ host last index _ live (run_trace run)).2
  unfold HostEndpoint.leaseAt at seen
  rw [found, Option.map_some, Option.map_some] at seen
  exact Option.map_eq_some_iff.mp seen

/-- A handle that resolved is stale once its channel has been reset. -/
theorem resolved_stale (live : host.Live) (run : host.run calls = some (outcomes, last))
    {handle : HostChannelHandle} {alive others : Nat → Bool} {resolved : Nat × HostChannel}
    (names : host.resolve alive handle = .ok resolved)
    (reset : .renewed ∈ (calls.zip outcomes).map (channelEvent handle.channelIndex)) :
    last.resolve others handle = .error .staleHandle := by
  obtain ⟨place, channel⟩ := resolved
  obtain ⟨found, rfl, generation, own⟩ := HostEndpoint.resolve_found names
  obtain ⟨later, held, lease⟩ := channel_through live run found
  obtain ⟨_, _, again, follows⟩ := run_ends calls live.valid
  rw [run] at again
  cases again
  rw [HostEndpoint.resolve_own (HostEndpoint.resolve_assigned names)
    (own.trans follows.scope.symm) held, if_neg]
  intro same
  have current : later.generation = channel.generation := same.symm.trans generation
  refine (Lease.through_current channel.lease _).mp ?_ reset
  rw [← lease]
  exact current

/-- After any calls of a created host: a handle that resolves has the scope of the host, and no
longer resolves once its channel has been reset; the generation of a channel counts its resets,
and a reset that fails changes nothing; a channel is faulted exactly from a callback that throws
to the next reset, and until then its operations do nothing; the calls that are about no other
channel have the outcomes they have alone; and a call is refused while a callback of the host runs
on its thread, so that a callback that calls its host, directly or through another host, changes
nothing of it. -/
theorem channels_separate (created : host.Created specs) {before : List (HostCall σ)}
    {earlier : List (HostOutcome σ)} (first : host.run before = some (earlier, middle))
    (run : middle.run calls = some (outcomes, last)) :
    (∀ handle alive resolved, middle.resolve alive handle = .ok resolved →
      handle.scope = host.scope ∧
      (∀ (other : HostEndpoint) others, other.scope ≠ host.scope →
        ∃ status, other.resolve others handle = .error status) ∧
      (.renewed ∈ (calls.zip outcomes).map (channelEvent handle.channelIndex) →
        ∀ others, last.resolve others handle = .error .staleHandle)) ∧
    (∀ index channel, middle.channels[index]? = some channel →
      ∃ later, last.channels[index]? = some later ∧
        later.generation = channel.generation +
          ((calls.zip outcomes).map (channelEvent index)).count .renewed ∧
        (later.faulted = true ↔
          (channel.faulted = true ∧
            .renewed ∉ (calls.zip outcomes).map (channelEvent index)) ∨
          ∃ earlier after, (calls.zip outcomes).map (channelEvent index) =
            earlier ++ .failed :: after ∧ LeaseEvent.renewed ∉ after)) ∧
    (∀ (call : HostCall σ) outcome next, last.call call = some (outcome, next) →
      ((∃ handle, call.request = .reset handle) → outcome.reply.hostStatus ≠ .ok → next = last) ∧
      (∀ handle channel, call.request.handle = some handle →
        last.channels[handle.channelIndex]? = some channel → channel.faulted = true →
          (∀ handle, call.request ≠ .reset handle) →
            next = last ∧ outcome.handled = [] ∧ outcome.encoded = none ∧
              outcome.memory = call.memory ∧
                ∀ result, outcome.reply = .operation result → result.Untouched)) ∧
    (∀ call : HostCall σ, last.scope ∈ call.context.scopes → last.call call =
      some ({ reply := call.request.refused .reentrantCall, memory := call.memory }, last)) ∧
    (∀ (program : CallbackBody σ) (thread : Thread σ),
      ∃ made, Drives [] thread (program.run [] [] thread).2 made) ∧
    (∀ index, ∃ final,
      middle.run (((calls.zip outcomes).filter fun event =>
        event.1.request.concerns host.bindings index).map Prod.fst) =
          some (((calls.zip outcomes).filter fun event =>
            event.1.request.concerns host.bindings index).map Prod.snd, final) ∧
      last.channels[index]? = final.channels[index]?) := by
  obtain ⟨live, -⟩ := @leaseAt_trace σ host middle 0 _ created.live (run_trace first)
  obtain ⟨lasting, -⟩ := @leaseAt_trace σ middle last 0 _ live (run_trace run)
  obtain ⟨_, _, again, reached⟩ := run_ends before created.live.valid
  rw [first] at again
  cases again
  refine ⟨fun handle alive resolved names => ⟨?_, fun other others apart => ?_,
    fun reset others => resolved_stale live run names reset⟩, fun index channel found => ?_,
    fun call outcome next ran => ⟨?_, ?_⟩, fun call linked => call_reentrant linked,
    fun program thread => program.run_drives (List.Subset.refl []) thread, fun index => ?_⟩
  · exact (HostEndpoint.resolve_found names).2.2.2.trans reached.scope
  · have own := (HostEndpoint.resolve_found names).2.2.2.trans reached.scope
    exact ⟨_, HostEndpoint.resolve_other (HostEndpoint.resolve_assigned names)
      (own ▸ apart.symm)⟩
  · obtain ⟨later, held, lease⟩ := channel_through live run found
    refine ⟨later, held, ?_, ?_⟩
    · exact (congrArg Lease.generation lease).trans (Lease.through_generation _ _)
    · exact (iff_of_eq (congrArg (·.faulted = true) lease)).trans (Lease.through_faulted _ _)
  · rintro ⟨handle, request⟩ failed
    exact reset_unchanged lasting request ran failed
  · intro handle channel request found faulted operation
    exact call_faulted found faulted request operation ran
  · rw [← reached.bindings]
    exact isolated_trace (run_trace run) index

/-- A callback that throws on the first channel, a record on the second one, and a reset of the
first: its handle is stale, its generation has grown by one, and leaving out the record changes
nothing of it. -/
theorem channels_separate_ping : ∃ (host last final : HostEndpoint)
    (fault other reset : HostOutcome Unit) (channel : HostChannel),
    host.Created pingSpecs ∧
    host.run [pingFault, pingOther, pingReset] = some ([fault, other, reset], last) ∧
    [(pingFault, fault), (pingOther, other), (pingReset, reset)].map (channelEvent 0) =
      [.failed, .nothing, .renewed] ∧
    last.resolve (fun _ => true) ⟨7, 0, 1, true⟩ = .error .staleHandle ∧
    last.channels[0]? = some channel ∧ channel.generation = 2 ∧ channel.faulted = false ∧
    host.run [pingFault, pingReset] = some ([fault, reset], final) ∧
    last.channels[0]? = final.channels[0]? := by
  obtain ⟨host, created, count, answered, -, -, -, facts⟩ := ping_created
  obtain ⟨⟨outcomes, last⟩, run, events⟩ := Option.map_eq_some_iff.mp facts
  have length := (Machine.run_trace ((HostEndpoint.run_eq _ host).symm.trans run)).1
  obtain ⟨fault, other, reset, rfl⟩ := List.length_eq_three.mp length
  have start : host.run ([] : List (HostCall Unit)) = some ([], host) := rfl
  obtain ⟨lives, grows, -, -, -, alone⟩ := channels_separate created start run
  obtain ⟨assigned, own, first, found, generation⟩ := find_found answered
  obtain ⟨final, filtered, same⟩ := alone 0
  obtain ⟨channel, held, counted, faulted⟩ := grows 0 first found
  have resolved := @HostEndpoint.resolve_own host ⟨7, 0, 1, true⟩ (fun _ => true) assigned own first
    found
  rw [if_pos generation] at resolved
  simp only [List.zip_cons_cons, List.zip_nil_right] at events lives counted faulted
  refine ⟨host, last, final, fault, other, reset, channel, created, run, events, ?_, held, ?_, ?_,
    filtered, same⟩
  · exact (lives _ _ _ resolved).2.2 (by rw [events]; decide) _
  · rw [counted, events, ← generation]
    rfl
  · refine Bool.eq_false_of_not_eq_true fun fault => ?_
    rw [events] at faulted
    rcases faulted.mp fault with ⟨-, unrenewed⟩ | ⟨earlier, later, same, unrenewed⟩
    · exact unrenewed (by decide)
    · exact unrenewed (renewed_behind [.failed, .nothing] same)

end

end ProtocolAdapter.PublicApi
