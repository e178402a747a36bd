/-
This file proves that every call of a valid host answers and leaves the host valid: the codecs
stay codecs of the compiled protocol with idle workspaces, and a channel keeps its binding, its
memory, and whether it frames a stream.
-/

import ProtocolAdapter.Codec.EncodeForm
import ProtocolAdapter.PublicApi.HostCreation
import ProtocolAdapter.PublicApi.Lifetime

namespace ProtocolAdapter.PublicApi

open Foundation Description

open Codec (ExecutionWorkspace MutableByteBuffer decodeCompleteRecord encodeCompleteRecord
  PlanValid PlanCounted decodeReply encodeReply decodeReply_slots_length
  decodeCompleteRecord_replies encodeCompleteRecord_replies)

open Framing (pushStreamChunkWith pushStreamChunkWith_ends)

/-! ### Codecs -/

/-- A codec of a compiled protocol, between two calls. -/
structure CompleteRecordCodec.Serves (codec : CompleteRecordCodec)
    (state : CompiledProtocolArtifacts) (impl : Impl) : Prop where
  present : codec.impl = some impl
  valid : impl.Valid
  state : impl.state = state

/-- What calls keep of the state of a codec: the memory it owns. -/
structure Impl.Kept (impl later : Impl) : Prop where
  slotData : later.decodedSlots.data = impl.decodedSlots.data
  slotCount : later.decodedSlots.slots.length = impl.decodedSlots.slots.length
  valueData : later.mappedValues.data = impl.mappedValues.data
  valueCount : later.mappedValues.values.length = impl.mappedValues.values.length

theorem Impl.Kept.refl (impl : Impl) : impl.Kept impl := ⟨rfl, rfl, rfl, rfl⟩

theorem Impl.Kept.trans {impl middle later : Impl} (first : impl.Kept middle)
    (second : middle.Kept later) : impl.Kept later where
  slotData := second.slotData.trans first.slotData
  slotCount := second.slotCount.trans first.slotCount
  valueData := second.valueData.trans first.valueData
  valueCount := second.valueCount.trans first.valueCount

/-- What calls keep of a codec: its protocol and its memory. -/
def CompleteRecordCodec.Follows (state : CompiledProtocolArtifacts)
    (codec next : CompleteRecordCodec) : Prop :=
  ∀ impl, codec.Serves state impl → ∃ later, next.Serves state later ∧ impl.Kept later

theorem CompleteRecordCodec.Follows.trans {state : CompiledProtocolArtifacts}
    {codec middle next : CompleteRecordCodec} (first : codec.Follows state middle)
    (second : middle.Follows state next) : codec.Follows state next := by
  intro impl serves
  obtain ⟨between, served, kept⟩ := first impl serves
  obtain ⟨later, last, again⟩ := second between served
  exact ⟨later, last, kept.trans again⟩

section

variable {state : CompiledProtocolArtifacts} {codec : CompleteRecordCodec} {impl : Impl}

/-- A record that nothing can be read of. -/
theorem expired_reading {view : DecodedRecordView} {codecs : Codecs}
    (unreadable : view.impl codecs = none) : view.reading codecs = some {} := by
  unfold DecodedRecordView.reading DecodedRecordView.fieldCount DecodedRecordView.hasValue
    DecodedRecordView.messageIndex
  simp only [unreadable]
  rfl

/-- All of a record that was decoded can be read. -/
theorem DecodedRecordView.Reports.reading {view : DecodedRecordView} {codecs : Codecs}
    {reply : Codec.DecodeReply} {record : List UInt8}
    (reports : view.Reports codecs state reply record) :
    ∃ reading, view.reading codecs = some reading ∧ reading.hasValue = true ∧
      reading.messageIndex = reply.result.messageIndex := by
  unfold DecodedRecordView.reading
  rw [reports.fieldCount]
  obtain ⟨readings, read, -⟩ := mapM_listed (fun ordinal =>
    (view.fieldAt ordinal).reading codecs) (List.range reply.result.fieldCount)
    fun ordinal member => by
      obtain ⟨slot, flat, -, -, -, -, reading⟩ :=
        reports.fields ordinal (List.mem_range.mp member)
      exact ⟨_, reading⟩
  rw [read]
  exact ⟨_, rfl, reports.hasValue, reports.messageIndex⟩

/-- A decode answers, and its record can be read. -/
theorem decode_ends (serves : codec.Serves state impl) (self pipelineIndex : Nat)
    (frame : ByteView) :
    ∃ result after later, codec.decode self false pipelineIndex frame = some (result, after) ∧
      after.Serves state later ∧ impl.Kept later ∧
      ∃ reading, result.record.reading (codecAt self after) = some reading := by
  obtain ⟨present, valid, rfl⟩ := serves
  obtain ⟨call, replied, -, slots, idle, -⟩ :=
    decodeCompleteRecord_replies valid.plan valid.idle pipelineIndex frame impl.decodedSlots
  have answers : ∃ result after,
      codec.decode self false pipelineIndex frame = some (result, after) := by
    have same : decodeCompleteRecord impl.beginGuardedCall.state.plan
        impl.beginGuardedCall.workspace pipelineIndex frame
        impl.beginGuardedCall.decodedSlots = some call := replied
    unfold CompleteRecordCodec.decode
    simp only [present, Bool.false_eq_true, if_false, same, Option.bind_eq_bind, Option.bind_some]
    repeat' split
    all_goals exact ⟨_, _, rfl⟩
  obtain ⟨result, after, run⟩ := answers
  rcases decode_cases run with ⟨-, -, -, refused⟩ | ⟨other, later, same, -, held, again, rfl, done⟩
  · simp [present] at refused
  obtain rfl := Option.some.inj (present.symm.trans held)
  obtain rfl := Option.some.inj (replied.symm.trans again)
  refine ⟨result, _, later, run, ⟨rfl, ?_, done.state⟩, ⟨?_, ?_, ?_, ?_⟩, ?_⟩
  · exact ⟨done.state ▸ valid.plan, done.state ▸ done.workspace ▸ idle⟩
  · rw [done.slots]
  · rw [done.slots, slots]
    exact decodeReply_slots_length valid.plan pipelineIndex
  · rw [done.mapped]
  · rw [done.mapped]
  · by_cases accepted : result.status = .ok
    · have kept : (codecAt self { codec with impl := some later })[self]? =
          some { codec with impl := some later } := by
        unfold codecAt
        rw [List.getElem?_append_right (by simp)]
        simp
      obtain ⟨reading, read, -⟩ := (decoded_reports valid replied done accepted kept).reading
      exact ⟨reading, read⟩
    · obtain ⟨succeeded, -⟩ | ⟨-, record, -⟩ := done.answer
      · exact absurd succeeded accepted
      · rw [record]
        exact ⟨{}, expired_reading rfl⟩

/-- An encode answers. Its status and the length of its buffer are those of a reply for values
that were mapped. -/
theorem encode_ends (serves : codec.Serves state impl) (pipelineIndex messageIndex : Nat)
    (values : EncodeValues) (output : MutableByteBuffer) :
    ∃ done later, codec.encode false pipelineIndex messageIndex values output = some done ∧
      done.codec.Serves state later ∧ impl.Kept later ∧
      (done.result.status ≠ .bufferTooSmall ∧ done.result.status ≠ .ok ∧
          done.output = output.contents ∨
        ∃ mapped,
          let reply := encodeReply state.plan pipelineIndex messageIndex mapped output
          done.result.status = mapStatus reply.result.status ∧
            done.result.bytesWritten = reply.result.bytesWritten ∧ done.output = reply.output) := by
  obtain ⟨present, valid, rfl⟩ := serves
  have begun : impl.beginGuardedCall.Valid := ⟨valid.plan, valid.idle⟩
  unfold CompleteRecordCodec.encode
  simp only [present, Bool.false_eq_true, if_false]
  by_cases many : values.values.length > impl.beginGuardedCall.mappedValues.values.length
  · rw [if_pos many]
    exact ⟨_, _, rfl, ⟨rfl, begun, rfl⟩, ⟨rfl, rfl, rfl, rfl⟩, .inl ⟨by simp, by simp, rfl⟩⟩
  rw [if_neg many]
  by_cases null : values.data = none ∧ values.values.length ≠ 0
  · rw [if_pos null]
    exact ⟨_, _, rfl, ⟨rfl, begun, rfl⟩, ⟨rfl, rfl, rfl, rfl⟩, .inl ⟨by simp, by simp, rfl⟩⟩
  rw [if_neg null]
  obtain ⟨call, encoded, result, written, idle, -⟩ := encodeCompleteRecord_replies valid.plan
    valid.idle pipelineIndex messageIndex
    { impl.mappedValues with values := values.values.map (mapValue impl.state.plan) } output
  have same : encodeCompleteRecord impl.beginGuardedCall.state.plan
      impl.beginGuardedCall.workspace pipelineIndex messageIndex
      { impl.beginGuardedCall.mappedValues with
        values := values.values.map (mapValue impl.beginGuardedCall.state.plan) } output =
        some call := encoded
  rw [same, Option.bind_eq_bind, Option.bind_some]
  refine ⟨_, _, rfl, ⟨rfl, ⟨valid.plan, idle⟩, rfl⟩, ⟨rfl, rfl, rfl, ?_⟩, .inr ⟨{ impl.mappedValues
    with values := values.values.map (mapValue impl.state.plan) }, ?_⟩⟩
  · have room : values.values.length ≤ impl.mappedValues.values.length := Nat.not_lt.mp many
    refine List.length_append.trans ?_
    rw [List.length_map, List.length_drop]
    exact Nat.add_sub_cancel' room
  · exact ⟨congrArg (fun reply => mapStatus reply.status) result,
      congrArg Codec.EncodeResult.bytesWritten result, written⟩

end

/-! ### Channels -/

/-- A channel of a compiled protocol, between two calls. -/
structure HostChannel.Valid (channel : HostChannel) (state : CompiledProtocolArtifacts) :
    Prop where
  codec : ∃ impl, channel.codec.Serves state impl
  framer : ∀ framer, channel.framer = some framer → framer.state = state

/-- What calls keep of a channel. -/
structure HostChannel.Follows (state : CompiledProtocolArtifacts) (channel next : HostChannel) :
    Prop where
  binding : next.bindingIndex = channel.bindingIndex
  codec : channel.codec.Follows state next.codec
  framer : next.framer.map (fun framer => (framer.state, framer.pipelineIndex)) =
    channel.framer.map fun framer => (framer.state, framer.pipelineIndex)
  bufferData : next.encodeBuffer.data = channel.encodeBuffer.data
  bufferSize : next.encodeBuffer.capacity = channel.encodeBuffer.capacity

theorem HostChannel.Follows.refl (state : CompiledProtocolArtifacts) (channel : HostChannel) :
    channel.Follows state channel :=
  ⟨rfl, fun impl serves => ⟨impl, serves, .refl impl⟩, rfl, rfl, rfl⟩

theorem HostChannel.Follows.trans {state : CompiledProtocolArtifacts}
    {channel middle next : HostChannel} (first : channel.Follows state middle)
    (second : middle.Follows state next) : channel.Follows state next where
  binding := second.binding.trans first.binding
  codec := first.codec.trans second.codec
  framer := second.framer.trans first.framer
  bufferData := second.bufferData.trans first.bufferData
  bufferSize := second.bufferSize.trans first.bufferSize

/-- A channel that follows a valid one is valid. -/
theorem HostChannel.Follows.valid {state : CompiledProtocolArtifacts} {channel next : HostChannel}
    (follows : channel.Follows state next) (valid : channel.Valid state) : next.Valid state := by
  constructor
  · obtain ⟨impl, serves⟩ := valid.codec
    obtain ⟨later, served, -⟩ := follows.codec impl serves
    exact ⟨later, served⟩
  · intro framer has
    have same := follows.framer
    rw [has] at same
    obtain ⟨old, held, equal⟩ := Option.map_eq_some_iff.mp same.symm
    rw [← (Prod.mk.inj equal).1]
    exact valid.framer old held

/-- A channel whose fault is another one follows it. -/
theorem HostChannel.follows_faulted {state : CompiledProtocolArtifacts}
    {channel next : HostChannel} {faulted : Bool} (follows : channel.Follows state next) :
    channel.Follows state { next with faulted := faulted } :=
  ⟨follows.binding, follows.codec, follows.framer, follows.bufferData, follows.bufferSize⟩

section

variable {σ : Type} {state : CompiledProtocolArtifacts} {scopes : List Nat}

/-- Callbacks only leave a fault behind. -/
theorem invoke_channel {View : Type} (attempt : HostAttempt σ) (callback : HostCallback σ View)
    (view : View) (record : RecordReading) :
    ∃ faulted, (attempt.invoke scopes callback view record).2.channel =
      { attempt.channel with faulted := faulted } := by
  unfold HostAttempt.invoke
  dsimp only
  split
  · exact ⟨attempt.channel.faulted, rfl⟩
  · exact ⟨true, rfl⟩

theorem invokeObserver_channel (observer : Option (HostCallback σ HostCandidateView))
    (view : HostCandidateView) (record : RecordReading) (attempt : HostAttempt σ) :
    ∃ faulted, (invokeObserver scopes observer view record attempt).2.channel =
      { attempt.channel with faulted := faulted } := by
  unfold invokeObserver
  split
  · exact ⟨attempt.channel.faulted, rfl⟩
  · rename_i function
    obtain ⟨faulted, same⟩ := @invoke_channel σ scopes _ attempt function view record
    refine ⟨faulted, ?_⟩
    dsimp only
    split
    · exact same
    · exact same

theorem invokeBusiness_channel (sink : HostCallback σ HostOutputView) (view : HostOutputView)
    (record : RecordReading) (attempt : HostAttempt σ) :
    ∃ faulted, (invokeBusiness scopes sink view record attempt).2.channel =
      { attempt.channel with faulted := faulted } := by
  obtain ⟨faulted, same⟩ := @invoke_channel σ scopes _ attempt sink view record
  refine ⟨faulted, ?_⟩
  unfold invokeBusiness
  dsimp only
  split
  · exact same
  · exact same

theorem invokeBusiness_codecStatus (sink : HostCallback σ HostOutputView) (view : HostOutputView)
    (record : RecordReading) (attempt : HostAttempt σ) :
    (invokeBusiness scopes sink view record attempt).2.result.codecStatus =
      attempt.result.codecStatus := by
  unfold invokeBusiness HostAttempt.invoke
  dsimp only
  repeat' split
  all_goals rfl

theorem handOver_channel (sink : HostCallback σ HostOutputView)
    (observer : Option (HostCallback σ HostCandidateView)) (frame : ByteView)
    (decoded : DecodeResult) (record : RecordReading) (attempt : HostAttempt σ) :
    ∃ faulted, (handOver scopes sink observer frame decoded record attempt).2.channel =
      { attempt.channel with faulted := faulted } := by
  unfold handOver
  dsimp only
  obtain ⟨first, observed⟩ := @invokeObserver_channel σ scopes observer
    (candidateView attempt.channel.generation frame decoded) record attempt
  split
  · exact ⟨first, observed⟩
  split
  · exact ⟨first, observed⟩
  · obtain ⟨second, delivered⟩ := @invokeBusiness_channel σ scopes sink
      (outputView (invokeObserver scopes observer
        (candidateView attempt.channel.generation frame decoded) record
        attempt).2.channel.generation frame decoded record) record
      (invokeObserver scopes observer
        (candidateView attempt.channel.generation frame decoded) record attempt).2
    exact ⟨second, delivered.trans (by rw [observed])⟩

/-- A candidate is decoded and handed over, and its channel follows. -/
theorem decodeCandidate_ends (sink : HostCallback σ HostOutputView)
    (observer : Option (HostCallback σ HostCandidateView)) (index pipelineIndex : Nat)
    (frame : ByteView) {attempt : HostAttempt σ} (valid : attempt.channel.Valid state) :
    ∃ continues next, decodeCandidate scopes sink observer index pipelineIndex frame attempt =
      some (continues, next) ∧ attempt.channel.Follows state next.channel := by
  obtain ⟨impl, serves⟩ := valid.codec
  obtain ⟨decoded, codec, later, run, served, kept, record, read⟩ :=
    decode_ends serves index pipelineIndex frame
  unfold decodeCandidate
  rw [run]
  simp only [Option.bind_eq_bind, Option.bind_some, read]
  obtain ⟨faulted, same⟩ := @handOver_channel σ scopes sink observer frame decoded record
    { attempt with
      channel := { attempt.channel with codec := codec }
      result := attempt.result.decoded decoded.status }
  generalize handOver _ _ _ _ _ _ _ = outcome at same ⊢
  obtain ⟨continues, next⟩ := outcome
  refine ⟨continues, next, rfl, ?_⟩
  rw [same]
  refine HostChannel.follows_faulted ⟨rfl, fun other served' => ?_, rfl, rfl, rfl⟩
  obtain rfl := Option.some.inj (serves.present.symm.trans served'.present)
  exact ⟨later, served, kept⟩

/-- A chunk is framed and its candidates are handled, and the channel follows. -/
theorem pushChannel_ends (sink : HostCallback σ HostOutputView)
    (observer : Option (HostCallback σ HostCandidateView)) (index pipelineIndex : Nat)
    {framer : StreamFramer} (input : ByteView) {attempt : HostAttempt σ}
    (valid : attempt.channel.Valid state) (has : attempt.channel.framer = some framer) :
    ∃ next, pushChannel scopes sink observer index pipelineIndex framer input attempt = some next ∧
      attempt.channel.Follows state next.channel := by
  have answers : Framing.Answers (fun later => attempt.channel.Follows state later.channel)
      (candidateSink scopes sink observer index pipelineIndex framer.frameData) := by
    intro earlier frame follows
    obtain ⟨continues, next, run, onward⟩ := @decodeCandidate_ends σ state scopes sink observer
      index pipelineIndex { data := framer.frameData, bytes := frame } _ (follows.valid valid)
    unfold candidateSink
    rw [run]
    exact ⟨_, next, rfl, follows.trans onward⟩
  obtain ⟨after, final, pushed, follows⟩ := pushStreamChunkWith_ends answers framer.state.plan
    framer.workspace framer.pipelineIndex input (.refl state attempt.channel)
  unfold pushChannel StreamFramer.push
  by_cases null : input.data = none ∧ input.size ≠ 0
  · simp only [if_pos null]
    refine ⟨_, rfl, rfl, fun impl serves => ⟨impl, serves, .refl impl⟩, ?_, rfl, rfl⟩
    rw [has]
  · simp only [if_neg null, Bool.false_eq_true, if_false, pushed, Option.bind_eq_bind,
      Option.bind_some]
    refine ⟨_, rfl, follows.binding, follows.codec, ?_, follows.bufferData, follows.bufferSize⟩
    rw [has]
    rfl

end

/-! ### Hosts -/

/-- A host of a compiled protocol, between two calls. -/
structure HostEndpoint.Valid (host : HostEndpoint) : Prop where
  counted : PlanCounted host.state.plan
  channels : ∀ channel ∈ host.channels, channel.Valid host.state
  bound : ∀ channel ∈ host.channels, ∃ binding,
    host.bindings[channel.bindingIndex]? = some binding
  ranges : ∀ binding ∈ host.bindings,
    binding.firstChannel + binding.channelCount ≤ host.channels.length

/-- What calls keep of a host. -/
structure HostEndpoint.Follows (host next : HostEndpoint) : Prop where
  state : next.state = host.state
  scope : next.scope = host.scope
  bindings : next.bindings = host.bindings
  count : next.channels.length = host.channels.length
  channels : ∀ (index : Nat) (channel : HostChannel), host.channels[index]? = some channel →
    ∃ later, next.channels[index]? = some later ∧ channel.Follows host.state later

theorem HostEndpoint.Follows.refl (host : HostEndpoint) : host.Follows host :=
  ⟨rfl, rfl, rfl, rfl, fun _ channel found => ⟨channel, found, .refl host.state channel⟩⟩

theorem HostEndpoint.Follows.trans {host middle next : HostEndpoint}
    (first : host.Follows middle) (second : middle.Follows next) : host.Follows next where
  state := second.state.trans first.state
  scope := second.scope.trans first.scope
  bindings := second.bindings.trans first.bindings
  count := second.count.trans first.count
  channels index channel found := by
    obtain ⟨between, reached, follows⟩ := first.channels index channel found
    obtain ⟨later, ends, onward⟩ := second.channels index between reached
    exact ⟨later, ends, follows.trans (first.state ▸ onward)⟩

/-- A host that follows a valid one is valid. -/
theorem HostEndpoint.Follows.valid {host next : HostEndpoint} (follows : host.Follows next)
    (valid : host.Valid) : next.Valid := by
  have each : ∀ channel ∈ next.channels, ∃ old ∈ host.channels,
      old.Follows host.state channel := by
    intro channel member
    obtain ⟨index, found⟩ := List.mem_iff_getElem?.mp member
    have inside := (List.getElem?_eq_some_iff.mp found).1
    rw [follows.count] at inside
    obtain ⟨later, reached, kept⟩ :=
      follows.channels index _ (List.getElem?_eq_getElem inside)
    obtain rfl := Option.some.inj (found.symm.trans reached)
    exact ⟨_, List.getElem_mem inside, kept⟩
  refine ⟨follows.state ▸ valid.counted, fun channel member => ?_, fun channel member => ?_, ?_⟩
  · obtain ⟨old, among, kept⟩ := each channel member
    rw [follows.state]
    exact kept.valid (valid.channels old among)
  · obtain ⟨old, among, kept⟩ := each channel member
    rw [follows.bindings, kept.binding]
    exact valid.bound old among
  · rw [follows.bindings, follows.count]
    exact valid.ranges

/-- A channel that follows takes the place of the old one. -/
theorem HostEndpoint.follows_withChannel {host : HostEndpoint} {index : Nat}
    {channel next : HostChannel} (found : host.channels[index]? = some channel)
    (follows : channel.Follows host.state next) : host.Follows (host.withChannel index next) where
  state := rfl
  scope := rfl
  bindings := rfl
  count := List.length_set
  channels other old held := by
    by_cases same : index = other
    · obtain rfl := same
      obtain rfl := Option.some.inj (found.symm.trans held)
      exact ⟨next, List.getElem?_set_self (List.getElem?_eq_some_iff.mp found).1, follows⟩
    · exact ⟨old, (List.getElem?_set_ne same).trans held, .refl host.state old⟩

/-- A handle that resolves names a channel of the host. -/
theorem HostEndpoint.resolve_found {host : HostEndpoint} {alive : Nat → Bool}
    {handle : HostChannelHandle} {index : Nat} {channel : HostChannel}
    (resolved : host.resolve alive handle = .ok (index, channel)) :
    host.channels[index]? = some channel ∧ index = handle.channelIndex ∧
      handle.generation = channel.generation ∧ handle.scope = host.scope := by
  unfold HostEndpoint.resolve at resolved
  split at resolved
  · cases resolved
  split at resolved
  · cases resolved
  rename_i own
  split at resolved
  · cases resolved
  rename_i found
  split at resolved
  · cases resolved
  rename_i current
  cases resolved
  exact ⟨found, rfl, not_not.mp current, not_not.mp own⟩

/-! ### Operations -/

section

variable {σ : Type} {scopes : List Nat} {host : HostEndpoint}

theorem find_ends (valid : host.Valid) (context : CallContext) (endpointKey : List UInt8)
    (action : HostAction) (decodeStreamIndex : Nat) :
    ∃ result, host.find context endpointKey action decodeStreamIndex = some result := by
  unfold HostEndpoint.find
  split
  · exact ⟨_, rfl⟩
  split
  · exact ⟨_, rfl⟩
  split
  · exact ⟨_, rfl⟩
  rename_i binding found
  split
  · exact ⟨_, rfl⟩
  rename_i inside
  have within := valid.ranges binding (List.mem_of_find?_eq_some found)
  dsimp only
  rw [List.getElem?_eq_getElem (show binding.firstChannel + decodeStreamIndex <
    host.channels.length by omega)]
  exact ⟨_, rfl⟩

theorem observe_ends (valid : host.Valid) (context : CallContext) (handle : HostChannelHandle) :
    ∃ observed, host.observe context handle = some observed := by
  unfold HostEndpoint.observe
  split
  · exact ⟨_, rfl⟩
  split
  · exact ⟨_, rfl⟩
  rename_i channel resolved
  obtain ⟨found, -⟩ := HostEndpoint.resolve_found resolved
  obtain ⟨binding, bound⟩ := valid.bound channel (List.mem_of_getElem? found)
  rw [bound, Option.bind_eq_bind, Option.bind_some]
  split <;> exact ⟨_, rfl⟩

theorem reset_follows (host : HostEndpoint) (context : CallContext)
    (handle : HostChannelHandle) : host.Follows (host.reset context handle).2 := by
  unfold HostEndpoint.reset
  split
  · exact .refl host
  split
  · exact .refl host
  rename_i index channel resolved
  obtain ⟨found, -⟩ := HostEndpoint.resolve_found resolved
  have renewed : channel.codec.Follows host.state channel.codec.advanceViewEpoch :=
    fun impl serves => ⟨impl, ⟨serves.present, serves.valid, serves.state⟩, .refl impl⟩
  split
  · exact .refl host
  dsimp only
  split
  · exact HostEndpoint.follows_withChannel found ⟨rfl, renewed, rfl, rfl, rfl⟩
  rename_i framer has
  have kept : (framer.reset {}).2.state = framer.state ∧
      (framer.reset {}).2.pipelineIndex = framer.pipelineIndex := by
    unfold StreamFramer.reset
    exact ⟨rfl, rfl⟩
  generalize framer.reset {} = outcome at kept ⊢
  have framed : (some outcome.2).map (fun framer => (framer.state, framer.pipelineIndex)) =
      channel.framer.map fun framer => (framer.state, framer.pipelineIndex) := by
    rw [has, Option.map_some, Option.map_some, kept.1, kept.2]
  split
  · exact HostEndpoint.follows_withChannel found ⟨rfl, renewed, framed, rfl, rfl⟩
  · exact HostEndpoint.follows_withChannel found
      ⟨rfl, fun impl serves => ⟨impl, serves, .refl impl⟩, framed, rfl, rfl⟩

/-- What an operation leaves of a host. -/
def Leaves (host : HostEndpoint) (operation : Access (OperationEnd σ)) : Prop :=
  ∃ done, operation = some done ∧ host.Follows done.host

theorem leaves_refuse (host : HostEndpoint) (result : HostOperationResult) (status : HostStatus)
    (memory : σ) : Leaves host (some (host.refuse result status memory)) :=
  ⟨_, rfl, .refl host⟩

theorem decode_leaves (valid : host.Valid) (context : CallContext) (handle : HostChannelHandle)
    (frame : ByteView) (callbacks : HostCallbacks σ) (memory : σ) :
    Leaves host (host.decode context handle frame callbacks memory) := by
  unfold HostEndpoint.decode
  split
  · exact leaves_refuse ..
  split
  · exact leaves_refuse ..
  rename_i index channel resolved
  obtain ⟨found, -⟩ := HostEndpoint.resolve_found resolved
  have member := List.mem_of_getElem? found
  obtain ⟨binding, bound⟩ := valid.bound channel member
  simp only [bound, Option.bind_eq_bind, Option.bind_some]
  split
  · exact leaves_refuse ..
  split
  · exact leaves_refuse ..
  split
  · exact leaves_refuse ..
  rename_i sink has
  split
  · exact leaves_refuse ..
  split
  · exact leaves_refuse ..
  obtain ⟨continues, next, run, follows⟩ := @decodeCandidate_ends σ host.state _ sink
    callbacks.observer index binding.pipelineIndex frame
    { channel := channel
      result := { generation := channel.generation, status := .ok }
      memory := memory } (valid.channels channel member)
  rw [run, Option.bind_some]
  exact ⟨_, rfl, HostEndpoint.follows_withChannel found follows⟩

theorem push_leaves (valid : host.Valid) (context : CallContext) (handle : HostChannelHandle)
    (input : ByteView) (callbacks : HostCallbacks σ) (memory : σ) :
    Leaves host (host.push context handle input callbacks memory) := by
  unfold HostEndpoint.push
  split
  · exact leaves_refuse ..
  split
  · exact leaves_refuse ..
  rename_i index channel resolved
  obtain ⟨found, -⟩ := HostEndpoint.resolve_found resolved
  have member := List.mem_of_getElem? found
  obtain ⟨binding, bound⟩ := valid.bound channel member
  simp only [bound, Option.bind_eq_bind, Option.bind_some]
  split
  · exact leaves_refuse ..
  split
  · exact leaves_refuse ..
  rename_i framer has
  split
  · exact leaves_refuse ..
  rename_i sink has
  split
  · exact leaves_refuse ..
  split
  · exact leaves_refuse ..
  obtain ⟨next, run, follows⟩ := @pushChannel_ends σ host.state _ sink
    callbacks.observer index binding.pipelineIndex framer input
    { channel := channel
      result := { generation := channel.generation, status := .ok, framingAttempted := true }
      memory := memory } (valid.channels channel member) ‹_›
  rw [run, Option.bind_some]
  exact ⟨_, rfl, HostEndpoint.follows_withChannel found follows⟩

/-- The delivery of a record on a channel keeps the host and the status of the codec. -/
theorem finish_invokeBusiness {index : Nat} {channel : HostChannel}
    (found : host.channels[index]? = some channel) {sink : HostCallback σ HostOutputView}
    {view : HostOutputView} {record : RecordReading} {attempt : HostAttempt σ}
    (follows : channel.Follows host.state attempt.channel) :
    host.Follows (host.finish index (invokeBusiness scopes sink view record attempt).2).host ∧
      (host.finish index (invokeBusiness scopes sink view record attempt).2).result.codecStatus =
        attempt.result.codecStatus := by
  obtain ⟨faulted, same⟩ := @invokeBusiness_channel σ scopes sink view record attempt
  refine ⟨HostEndpoint.follows_withChannel found ?_, invokeBusiness_codecStatus ..⟩
  rw [same]
  exact HostChannel.follows_faulted follows

/-- An encode on a channel ends with a reply of the codec for that message and buffer, or with
another status than that of a buffer that is too small. -/
theorem encodeChannel_ends (valid : host.Valid) {index : Nat} {channel : HostChannel}
    (found : host.channels[index]? = some channel) (pipelineIndex messageIndex : Nat)
    (values : EncodeValues) (sink : HostCallback σ HostOutputView) (result : HostOperationResult)
    (memory : σ) :
    ∃ done, encodeChannel host scopes index channel pipelineIndex messageIndex values sink
        result memory = some done ∧
      host.Follows done.host ∧
      (done.result.codecStatus = .bufferTooSmall → ∃ mapped,
        (encodeReply host.state.plan pipelineIndex messageIndex mapped
          channel.encodeBuffer).result.status = .bufferTooSmall) := by
  obtain ⟨impl, serves⟩ := (valid.channels channel (List.mem_of_getElem? found)).codec
  obtain ⟨encoded, later, run, served, kept, outcome⟩ :=
    encode_ends serves pipelineIndex messageIndex values channel.encodeBuffer
  have size : encoded.output.length = channel.encodeBuffer.capacity := by
    obtain ⟨-, -, same⟩ | ⟨mapped, -, -, same⟩ := outcome
    · rw [same]
    · rw [same]
      exact Codec.encodeReply_output_length (serves.state ▸ serves.valid.plan) valid.counted ..
  have small : encoded.result.status = .bufferTooSmall → ∃ mapped,
      (encodeReply host.state.plan pipelineIndex messageIndex mapped
        channel.encodeBuffer).result.status = .bufferTooSmall := by
    intro status
    obtain ⟨other, -⟩ | ⟨mapped, same, -⟩ := outcome
    · exact absurd status other
    · refine ⟨mapped, ?_⟩
      rw [status] at same
      revert same
      cases (encodeReply host.state.plan pipelineIndex messageIndex mapped
        channel.encodeBuffer).result.status <;> simp [mapStatus]
  have follows : channel.Follows host.state { channel with
      codec := encoded.codec
      encodeBuffer := { channel.encodeBuffer with contents := encoded.output } } := by
    refine ⟨rfl, fun other served' => ?_, rfl, rfl, size⟩
    obtain rfl := Option.some.inj (serves.present.symm.trans served'.present)
    exact ⟨later, served, kept⟩
  unfold encodeChannel
  rw [run]
  simp only [Option.bind_eq_bind, Option.bind_some]
  split
  · exact ⟨_, rfl, HostEndpoint.follows_withChannel found follows, small⟩
  · exact ⟨_, rfl, (finish_invokeBusiness found follows).1, fun reported =>
      small ((finish_invokeBusiness found follows).2.symm.trans reported)⟩

/-- Where a buffer that is too small has been lent to the codec. -/
structure BufferTooSmall (host : HostEndpoint) (messageIndex : Nat) (channel : HostChannel)
    (binding : HostBinding) (mapped : Codec.EncodeValues) : Prop where
  held : channel ∈ host.channels
  bound : host.bindings[channel.bindingIndex]? = some binding
  action : binding.action = .encode
  listed : messageIndex ∈ binding.encodeMessageIndices
  reply : (encodeReply host.state.plan binding.pipelineIndex messageIndex mapped
    channel.encodeBuffer).result.status = .bufferTooSmall

/-- An encode answers. -/
theorem encode_leaves (valid : host.Valid) (context : CallContext) (handle : HostChannelHandle)
    (messageIndex : Nat) (values : EncodeValues) (sink : Option (HostCallback σ HostOutputView))
    (memory : σ) :
    ∃ done, host.encode context handle messageIndex values sink memory = some done ∧
      host.Follows done.host ∧
      (done.result.codecStatus = .bufferTooSmall →
        ∃ channel binding mapped, BufferTooSmall host messageIndex channel binding mapped) := by
  have refuses : ∀ (status : HostStatus) (result : HostOperationResult),
      result.codecStatus = .invalidArgument → ∃ done,
        some (host.refuse result status memory) = some done ∧ host.Follows done.host ∧
          (done.result.codecStatus = .bufferTooSmall →
            ∃ channel binding mapped,
              BufferTooSmall host messageIndex channel binding mapped) := by
    intro status result unset
    refine ⟨_, rfl, .refl host, fun small => ?_⟩
    have same : result.codecStatus = .bufferTooSmall := small
    rw [unset] at same
    cases same
  unfold HostEndpoint.encode
  split
  · exact refuses _ _ rfl
  split
  · exact refuses _ _ rfl
  rename_i index channel resolved
  obtain ⟨found, -⟩ := HostEndpoint.resolve_found resolved
  have member := List.mem_of_getElem? found
  obtain ⟨binding, bound⟩ := valid.bound channel member
  simp only [bound, Option.bind_eq_bind, Option.bind_some]
  split
  · exact refuses _ _ rfl
  rename_i action
  split
  · exact refuses _ _ rfl
  split
  · exact refuses _ _ rfl
  rename_i listed
  split
  · exact refuses _ _ rfl
  split
  · exact refuses _ _ rfl
  obtain ⟨done, run, follows, small⟩ := encodeChannel_ends valid found binding.pipelineIndex
    messageIndex values _ { generation := channel.generation } memory
  refine ⟨done, run, follows, fun reported => ?_⟩
  obtain ⟨mapped, reply⟩ := small reported
  refine ⟨channel, binding, mapped, member, bound, not_not.mp action, ?_, reply⟩
  rw [Bool.not_eq_false, List.contains_iff_mem] at listed
  exact listed

/-- Every call answers and is followed by a valid host. -/
theorem call_ends (valid : host.Valid) (call : HostCall σ) :
    ∃ outcome next, host.call call = some (outcome, next) ∧ host.Follows next := by
  have operation : ∀ {done : Access (OperationEnd σ)}, Leaves host done →
      ∃ outcome next, done.map (·.outcome) = some (outcome, next) ∧ host.Follows next := by
    rintro _ ⟨done, rfl, follows⟩
    exact ⟨_, done.host, rfl, follows⟩
  unfold HostEndpoint.call
  dsimp only
  split
  · obtain ⟨result, run⟩ := find_ends valid call.context ‹_› ‹_› ‹_›
    rw [run]
    exact ⟨_, host, rfl, .refl host⟩
  · obtain ⟨observed, run⟩ := observe_ends valid call.context ‹_›
    rw [run]
    exact ⟨_, host, rfl, .refl host⟩
  · exact ⟨_, _, rfl, reset_follows host call.context _⟩
  · exact operation (decode_leaves valid ..)
  · exact operation (push_leaves valid ..)
  · exact operation (push_leaves valid ..)
  · obtain ⟨done, run, follows, -⟩ := encode_leaves valid call.context ‹_› ‹_› ‹_›
      call.callbacks.sink call.memory
    exact operation ⟨done, run, follows⟩

/-- Any calls one after the other answer, and are followed by a valid host. -/
theorem run_ends (calls : List (HostCall σ)) : ∀ {host : HostEndpoint}, host.Valid →
    ∃ outcomes last, host.run calls = some (outcomes, last) ∧ host.Follows last := by
  induction calls with
  | nil => exact fun {host} _ => ⟨[], host, rfl, .refl host⟩
  | cons call rest inductionHypothesis =>
    intro host valid
    obtain ⟨outcome, next, first, follows⟩ := call_ends valid call
    obtain ⟨outcomes, last, later, onward⟩ := inductionHypothesis (follows.valid valid)
    unfold HostEndpoint.run
    rw [first, Option.bind_eq_bind, Option.bind_some]
    simp only [later, Option.bind_eq_bind, Option.bind_some]
    exact ⟨_, last, rfl, follows.trans onward⟩

end

end ProtocolAdapter.PublicApi
