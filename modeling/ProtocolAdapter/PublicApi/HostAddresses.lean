/-
This file is about how the channels of a host are found. The bindings number their channels one
after the other, so every channel has one address, an endpoint with an action and the index of a
stream, and looking for an address yields a handle for its channel and for no other.
-/

import ProtocolAdapter.PublicApi.HostSupervision

namespace ProtocolAdapter.PublicApi

open Foundation Description

/-- The addresses of the channels, in the order of the channels. -/
def addresses (specs : List HostBindingSpec) : List (HostBindingSpec × Nat) :=
  specs.flatMap fun spec => (List.range spec.channelCount).map fun stream => (spec, stream)

theorem addresses_cons (spec : HostBindingSpec) (rest : List HostBindingSpec) :
    addresses (spec :: rest) =
      (List.range spec.channelCount).map (fun stream => (spec, stream)) ++ addresses rest :=
  List.flatMap_cons

theorem mem_addresses {specs : List HostBindingSpec} {spec : HostBindingSpec} {stream : Nat} :
    (spec, stream) ∈ addresses specs ↔ spec ∈ specs ∧ stream < spec.channelCount := by
  simp [addresses]

section

variable {sizes : HostSizes} {state : CompiledProtocolArtifacts} {limits : HostLimits}
  {bindingIndex first : Nat} {specs : List HostBindingSpec} {bindings : List HostBinding}
  {channels : List HostChannel}

/-- There are as many channels as addresses. -/
theorem Laid.count (laid : Laid sizes state limits bindingIndex first specs bindings channels) :
    channels.length = (addresses specs).length := by
  induction laid with
  | nil => rfl
  | cons opened count later inductionHypothesis =>
    rw [addresses_cons, List.length_append, List.length_append, count, inductionHypothesis,
      List.length_map, List.length_range]

/-- The binding of an address puts its channel where the address stands. -/
theorem Laid.finds (laid : Laid sizes state limits bindingIndex first specs bindings channels)
    (apart : specs.Pairwise HostBindingSpec.Apart) {index stream : Nat} {spec : HostBindingSpec}
    (listed : (addresses specs)[index]? = some (spec, stream)) :
    ∃ binding, bindings.find? (fun binding =>
        binding.endpoint == spec.endpointKey && binding.action == spec.action) = some binding ∧
      binding.firstChannel + stream = first + index ∧ stream < binding.channelCount := by
  induction laid generalizing index with
  | nil => cases listed
  | @cons bindingIndex first head rest bindings own channels opened count later
      inductionHypothesis =>
    rw [addresses_cons, List.getElem?_append, List.length_map, List.length_range] at listed
    split at listed
    · rename_i inside
      rw [List.getElem?_map, List.getElem?_range inside] at listed
      obtain ⟨rfl, rfl⟩ := Prod.mk.inj (Option.some.inj listed)
      exact ⟨bindSpec state head first, List.find?_cons_of_pos (by simp [bindSpec]), rfl, inside⟩
    · obtain ⟨ahead, others⟩ := List.pairwise_cons.mp apart
      obtain ⟨binding, found, place, within⟩ := inductionHypothesis others listed
      obtain ⟨member, -⟩ := mem_addresses.mp (List.mem_of_getElem? listed)
      refine ⟨binding, ?_, ?_, within⟩
      · rw [List.find?_cons_of_neg, found]
        intro same
        rw [Bool.and_eq_true, beq_iff_eq, beq_iff_eq] at same
        exact ahead spec member ⟨same.2, same.1⟩
      · rw [place, count]
        omega

/-- A channel that a binding puts somewhere has its address there. -/
theorem Laid.found (laid : Laid sizes state limits bindingIndex first specs bindings channels)
    {endpointKey : List UInt8} {action : HostAction} {stream : Nat} {binding : HostBinding}
    (found : bindings.find? (fun binding =>
      binding.endpoint == endpointKey && binding.action == action) = some binding)
    (within : stream < binding.channelCount) :
    ∃ spec index, (addresses specs)[index]? = some (spec, stream) ∧
      spec.endpointKey = endpointKey ∧ spec.action = action ∧
        binding.firstChannel + stream = first + index := by
  induction laid with
  | nil => cases found
  | @cons bindingIndex first head rest bindings own channels opened count later
      inductionHypothesis =>
    rw [List.find?_cons] at found
    split at found
    · rename_i same
      obtain rfl := Option.some.inj found
      rw [Bool.and_eq_true, beq_iff_eq, beq_iff_eq] at same
      have inside : stream < head.channelCount := within
      refine ⟨head, stream, ?_, same.1, same.2, rfl⟩
      rw [addresses_cons, List.getElem?_append_left (by simpa using inside), List.getElem?_map,
        List.getElem?_range inside]
      rfl
    · obtain ⟨spec, index, listed, key, acts, place⟩ := inductionHypothesis found
      refine ⟨spec, head.channelCount + index, ?_, key, acts, ?_⟩
      · rw [addresses_cons, List.getElem?_append_right (by simp), List.length_map,
          List.length_range, Nat.add_sub_cancel_left]
        exact listed
      · rw [place, count]
        omega

end

/-! ### Find -/

section

variable {σ : Type} {host last : HostEndpoint} {specs : List HostBindingSpec}

/-- The channels of a created host are the addresses of its bindings, and after any calls Find
yields exactly the handles for the channels at the addresses. -/
theorem find_exact (created : host.Created specs) {calls : List (HostCall σ)}
    {outcomes : List (HostOutcome σ)} (run : host.run calls = some (outcomes, last)) :
    last.channels.length = (addresses specs).length ∧
    ∀ (context : CallContext) (endpointKey : List UInt8) (action : HostAction)
      (decodeStreamIndex : Nat) (handle : HostChannelHandle),
      last.find context endpointKey action decodeStreamIndex =
          some { status := .ok, handle := handle } ↔
        context.refusal last.scope = none ∧ ∃ spec channel,
          (addresses specs)[handle.channelIndex]? = some (spec, decodeStreamIndex) ∧
          spec.endpointKey = endpointKey ∧ spec.action = action ∧
          last.channels[handle.channelIndex]? = some channel ∧
          handle = ⟨host.scope, handle.channelIndex, channel.generation, true⟩ := by
  obtain ⟨_, _, again, follows⟩ := run_ends calls created.live.valid
  rw [run] at again
  cases again
  obtain ⟨compiled, creates, made⟩ := created
  obtain ⟨⟨rfl, admitted, apart, laid⟩, -⟩ := createHostEndpoint_opened creates made
  refine ⟨follows.count.trans laid.count, ?_⟩
  intro context endpointKey action decodeStreamIndex handle
  unfold HostEndpoint.find
  rw [follows.bindings, follows.scope]
  constructor
  · intro answered
    split at answered
    · rename_i status refusal
      cases answered
      exact absurd refusal (refusal_ne_ok context _)
    rename_i free
    split at answered
    · cases answered
    split at answered
    · cases answered
    rename_i binding sought
    split at answered
    · cases answered
    rename_i within
    obtain ⟨channel, found, answered⟩ := Option.bind_eq_some_iff.mp answered
    cases answered
    obtain ⟨spec, index, listed, key, acts, place⟩ := laid.found sought (Nat.not_le.mp within)
    rw [Nat.zero_add] at place
    rw [place] at found ⊢
    exact ⟨free, spec, channel, listed, key, acts, found, rfl⟩
  · rintro ⟨free, spec, channel, listed, rfl, rfl, found, same⟩
    obtain ⟨binding, sought, place, within⟩ := laid.finds apart listed
    obtain ⟨member, -⟩ := mem_addresses.mp (List.mem_of_getElem? listed)
    rw [Nat.zero_add] at place
    rw [free]
    dsimp only
    rw [if_neg (admitted spec member).named, sought]
    dsimp only
    rw [if_neg (Nat.not_le.mpr within), place, found, same]
    rfl

/-- The second stream of the first binding. -/
theorem find_exact_ping : ∃ (host last : HostEndpoint) (outcomes : List (HostOutcome Unit))
    (channel : HostChannel),
    host.Created pingSpecs ∧ host.run [({ request := .find [1] .decode 1, memory := () } :
      HostCall Unit)] = some (outcomes, last) ∧
    last.find {} [1] .decode 1 =
      some { status := .ok, handle := ⟨host.scope, 1, channel.generation, true⟩ } := by
  obtain ⟨host, created, -, -⟩ := ping_created
  obtain ⟨outcomes, last, run, -⟩ := run_ends
    ([{ request := .find [1] .decode 1, memory := () }] : List (HostCall Unit)) created.live.valid
  obtain ⟨count, meaning⟩ := find_exact created run
  have inside : 1 < last.channels.length := by
    rw [count]
    decide
  have found := List.getElem?_eq_getElem inside
  exact ⟨host, last, outcomes, _, created, run,
    (meaning {} [1] .decode 1 ⟨host.scope, 1, _, true⟩).mpr ⟨rfl, _, _, rfl, rfl, rfl, found, rfl⟩⟩

end

end ProtocolAdapter.PublicApi
