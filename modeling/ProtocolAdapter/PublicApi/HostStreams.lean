/-
This file is about the streams of a host. Since the last reset of a channel, whatever the chunks
of the stream and whatever the callbacks answered, the frames that were decoded are the frames
that cutting the consumed bytes at once yields, and each was decoded and handed over once.
-/

import ProtocolAdapter.PublicApi.HostAccounting

namespace ProtocolAdapter.PublicApi

open Foundation Description

open ConfigCompiler (compileJsonToPlanWithMetadata)

open Framing (StreamFramingWorkspace batchSplit fresh_delivered pushStreamChunkWith_plain
  streamFraming)

/-! ### Traffic -/

/-- What went through a channel since its last reset: the bytes it consumed, and the frames that
were decoded. -/
structure Traffic where
  consumed : List UInt8 := []
  frames : List (List UInt8) := []

/-- The bytes a reply reports as consumed. -/
def HostReply.bytesConsumed (reply : HostReply) : Nat := reply.result.elim 0 (·.bytesConsumed)

/-- The chunk a request submits. -/
def HostRequest.chunk (request : HostRequest) : List UInt8 :=
  (request.submits.getD {}).bytes

section

variable {σ : Type}

/-- The traffic of the channel at an index after an event. -/
def Traffic.after (index : Nat) (traffic : Traffic) (event : HostCall σ × HostOutcome σ) :
    Traffic :=
  if channelEvent index event = .renewed then {}
  else if event.1.request.handle.map (·.channelIndex) = some index then
    { consumed := traffic.consumed ++ event.1.request.chunk.take event.2.reply.bytesConsumed
      frames := traffic.frames ++ framesHandled event.2.handled }
  else traffic

/-- A live host whose stream at an index, when there is one, has had some traffic. -/
structure HostEndpoint.Streams (index : Nat) (host : HostEndpoint) (traffic : Traffic) : Prop where
  live : host.Live
  delivered : ∀ channel framer, host.channels[index]? = some channel →
    channel.framer = some framer → framer.workspace.Delivered traffic.consumed traffic.frames

section

variable {index : Nat} {traffic : Traffic} {call : HostCall σ} {outcome : HostOutcome σ}

theorem after_elsewhere {handle : HostChannelHandle} (request : call.request.handle = some handle)
    (other : handle.channelIndex ≠ index) : traffic.after index (call, outcome) = traffic := by
  unfold Traffic.after
  rw [channelEvent_elsewhere request other, if_neg (by decide), if_neg]
  rw [request]
  exact fun same => other (Option.some.inj same)

theorem after_quiet {reply : HostReply} {memory : σ}
    (unreset : ∀ handle, call.request = .reset handle → reply.hostStatus ≠ .ok)
    (untouched : ∀ result, reply = .operation result → result.Untouched) :
    traffic.after index (call, { reply := reply, memory := memory }) = traffic := by
  have nothing : reply.bytesConsumed = 0 := by
    cases reply with
    | operation result =>
      have nothing := untouched result rfl
      unfold HostOperationResult.Untouched at nothing
      unfold HostReply.bytesConsumed HostReply.result
      rw [nothing]
      rfl
    | _ => rfl
  unfold Traffic.after
  rw [channelEvent_quiet unreset, if_neg (by decide)]
  split
  · simp [nothing, framesHandled]
  · rfl

theorem after_operation {handle : HostChannelHandle} (request : call.request.handle = some handle)
    (here : handle.channelIndex = index) (operation : ∀ handle, call.request ≠ .reset handle) :
    traffic.after index (call, outcome) =
      { consumed := traffic.consumed ++ call.request.chunk.take outcome.reply.bytesConsumed
        frames := traffic.frames ++ framesHandled outcome.handled } := by
  unfold Traffic.after
  rw [channelEvent_operation request here operation, if_neg, if_pos]
  · rw [request]
    exact congrArg some here
  · split <;> decide

/-- What an operation does to the stream of its channel. -/
theorem Works.streams {scopes : List Nat} {channel : HostChannel} {binding : HostBinding}
    {attempt : HostAttempt σ} {encoded : Option (HostOutputView × CallbackEnd)}
    (works : Works scopes index channel binding call attempt encoded)
    (delivered : ∀ framer, channel.framer = some framer →
      framer.workspace.Delivered traffic.consumed traffic.frames) :
    ∀ framer, attempt.channel.framer = some framer → framer.workspace.Delivered
      (traffic.consumed ++
        call.request.chunk.take (attempt.outcome encoded).reply.bytesConsumed)
      (traffic.frames ++ framesHandled (attempt.outcome encoded).handled) := by
  intro framer has
  cases works with
  | decoded request action whole present handles =>
    obtain ⟨codec, -, -, same⟩ := handles.channel
    rw [same] at has
    exact absurd (whole.symm.trans has) (by simp)
  | @pushed input old sink attempt submitted submits action framing present run =>
    obtain ⟨⟨function, plain⟩, deliveries⟩ := pushStreamChunkWith_plain run
    obtain ⟨candidates, handles, frames⟩ := deliveries_handled deliveries
    obtain rfl := Option.some.inj has
    have handled : attempt.handled = candidates := handles.handled
    have later := (delivered old framing).push plain
    simp only [HostAttempt.outcome, HostAttempt.framed, HostReply.bytesConsumed, HostReply.result,
      Option.elim_some, mapSubmitResult,
      HostRequest.chunk, submits, Option.getD_some, handled, frames]
    exact later
  | unencoded request action run failed =>
    have silent : call.request.chunk = [] := by
      rw [request]
      rfl
    rw [silent, List.take_nil, List.append_nil]
    exact (List.append_nil traffic.frames).symm ▸ delivered framer has
  | encoded request action run succeeded present shown delivers =>
    obtain ⟨same, -, handled, -⟩ := invokeBusiness_eq delivers
    have silent : call.request.chunk = [] := by
      rw [request]
      rfl
    rw [same] at has
    simp only [silent, List.take_nil, List.append_nil, HostAttempt.outcome, handled]
    exact (List.append_nil traffic.frames).symm ▸ delivered framer has

end

section

variable {index : Nat} {host next : HostEndpoint} {traffic : Traffic} {call : HostCall σ}
  {outcome : HostOutcome σ}

theorem withChannel_at {place : Nat} {channel renewed : HostChannel}
    (found : host.channels[place]? = some channel) :
    (host.withChannel place renewed).channels[index]? =
      if place = index then some renewed else host.channels[index]? := by
  unfold HostEndpoint.withChannel
  dsimp only
  split
  · rename_i same
    rw [← same]
    exact List.getElem?_set_self (List.getElem?_eq_some_iff.mp found).1
  · exact List.getElem?_set_ne ‹_›

/-- A call goes on with the traffic of a stream. -/
theorem HostEndpoint.Streams.step (streams : host.Streams index traffic)
    (ran : host.call call = some (outcome, next)) :
    next.Streams index (traffic.after index (call, outcome)) := by
  refine ⟨streams.live.step ran, fun channel framer found has => ?_⟩
  cases call_stepped ran with
  | quiet unreset untouched =>
    rw [after_quiet unreset untouched]
    exact streams.delivered channel framer found has
  | @renewed handle place old request resolved fresh reframed =>
    obtain ⟨held, named, -⟩ := HostEndpoint.resolve_found resolved
    rw [withChannel_at held] at found
    split at found
    · rename_i here
      obtain rfl := Option.some.inj found
      obtain ⟨before, framing, rfl⟩ := Option.map_eq_some_iff.mp has
      have reset := (streams.live.framed old (List.mem_of_getElem? held) before framing).reset.1
      have sound := (streams.delivered old before (here ▸ held) framing).sound
      unfold Traffic.after
      rw [channelEvent_renewed request (named.symm.trans here) rfl, if_pos rfl, reset]
      exact sound.reset_delivered
    · rename_i other
      rw [after_elsewhere (by rw [request]; rfl) (named ▸ other)]
      exact streams.delivered channel framer found has
  | stuck request resolved framing failed =>
    obtain ⟨held, -⟩ := HostEndpoint.resolve_found resolved
    exact absurd (streams.live.reframed (List.mem_of_getElem? held) framing) failed
  | @worked handle place old binding attempt encoded request free resolved bound working works =>
    obtain ⟨held, named, -⟩ := HostEndpoint.resolve_found resolved
    rw [withChannel_at held] at found
    split at found
    · rename_i here
      obtain rfl := Option.some.inj found
      rw [after_operation request (named.symm.trans here) works.operates]
      exact works.streams (fun framer framing => streams.delivered old framer (here ▸ held) framing)
        framer has
    · rename_i other
      rw [after_elsewhere request (named ▸ other)]
      exact streams.delivered channel framer found has

end

/-! ### Callbacks -/

section

/-- Every candidate is shown to the observer, when there is one, and delivered when it was decoded
and the observer did not throw. -/
theorem HandlesAll.shown {scopes : List Nat} {sink : HostCallback σ HostOutputView}
    {observer : Option (HostCallback σ HostCandidateView)} {index pipelineIndex : Nat}
    {frameData : Option Nat} {attempt after : HostAttempt σ} {candidates : List HandledCandidate}
    (handles :
      HandlesAll scopes sink observer index pipelineIndex frameData attempt candidates after) :
    ∀ candidate ∈ candidates, candidate.observed.isSome = observer.isSome ∧
      candidate.delivered.isSome = (candidate.succeeded && !threwIn candidate.observed) := by
  induction handles with
  | nothing attempt => exact fun candidate member => by cases member
  | last handles ends => exact List.forall_mem_singleton.mpr ⟨handles.observes, handles.delivers⟩
  | more handles goesOn rest inductionHypothesis =>
    exact List.forall_mem_cons.mpr ⟨⟨handles.observes, handles.delivers⟩, inductionHypothesis⟩

theorem call_shown {host next : HostEndpoint} {call : HostCall σ} {outcome : HostOutcome σ}
    (ran : host.call call = some (outcome, next)) : ∀ candidate ∈ outcome.handled,
      candidate.observed.isSome = call.callbacks.observer.isSome ∧
        candidate.delivered.isSome = (candidate.succeeded && !threwIn candidate.observed) := by
  cases call_stepped ran with
  | quiet => exact fun candidate member => by cases member
  | renewed => exact fun candidate member => by cases member
  | stuck => exact fun candidate member => by cases member
  | worked request free resolved bound working works =>
    cases works with
    | @decoded _ _ _ candidate next request action whole present handles =>
      have handled : next.handled = [candidate] := handles.handled
      simp only [HostAttempt.outcome, handled]
      exact List.forall_mem_singleton.mpr ⟨handles.observes, handles.delivers⟩
    | @pushed input old sink attempt submitted submits action framing present run =>
      obtain ⟨-, deliveries⟩ := pushStreamChunkWith_plain run
      obtain ⟨candidates, handles, -⟩ := deliveries_handled deliveries
      have handled : attempt.handled = candidates := handles.handled
      simp only [HostAttempt.outcome, HostAttempt.framed, handled]
      exact handles.shown
    | unencoded => exact fun candidate member => by cases member
    | encoded request action run succeeded present shown delivers =>
      obtain ⟨-, -, handled, -⟩ := invokeBusiness_eq delivers
      simp only [HostAttempt.outcome, handled]
      exact fun candidate member => by cases member

end

/-! ### Runs -/

section

variable {host last : HostEndpoint} {specs : List HostBindingSpec} {index : Nat}

/-- A created host has had no traffic. -/
theorem HostEndpoint.Created.streams (created : host.Created specs) : host.Streams index {} := by
  refine ⟨created.live, fun channel framer found has => ?_⟩
  obtain ⟨-, framing, limits, -, valid, fresh⟩ := created.framer (List.mem_of_getElem? found) has
  rw [fresh]
  exact fresh_delivered valid

/-- The workspace of a framer keeps the profile of its pipeline. -/
theorem StreamFramer.Reached.framing {framer : StreamFramer} {state : CompiledProtocolArtifacts}
    (reached : framer.Reached state) :
    streamFraming state.plan framer.pipelineIndex = some framer.workspace.framing := by
  obtain ⟨rfl, framing, limits, found, -, reachable⟩ := reached
  have fresh : (StreamFramingWorkspace.fresh framer.state.plan framer.pipelineIndex framing
      limits).framing = framing := by
    unfold StreamFramingWorkspace.fresh StreamFramingWorkspace.resetCandidate
    split <;> rfl
  rw [reachable.binding.framing, fresh]
  exact found

/-- Since the last reset of a stream, the frames that were decoded are the ones that cutting the
consumed bytes at once yields, but for those the framer still holds. Each was decoded once, shown
to the observer once, and delivered when it was decoded and the observer did not throw. -/
theorem stream_delivered (created : host.Created specs) {calls : List (HostCall σ)}
    {outcomes : List (HostOutcome σ)} (run : host.run calls = some (outcomes, last))
    {channel : HostChannel} (found : last.channels[index]? = some channel) {framer : StreamFramer}
    (streams : channel.framer = some framer) :
    let traffic := (calls.zip outcomes).foldl (Traffic.after index) {}
    (∃ framing, streamFraming host.state.plan framer.pipelineIndex = some framing ∧
      traffic.frames <+: batchSplit framing traffic.consumed ∧
      (framer.workspace.hasInternalWork = false →
        traffic.frames = batchSplit framing traffic.consumed)) ∧
    ∀ event ∈ calls.zip outcomes, ∀ candidate ∈ event.2.handled,
      candidate.observed.isSome = event.1.callbacks.observer.isSome ∧
        candidate.delivered.isSome = (candidate.succeeded && !threwIn candidate.observed) := by
  have trace := run_trace run
  have through : last.Streams index ((calls.zip outcomes).foldl (Traffic.after index) {}) :=
    trace.history (fun streams ran => streams.step ran) created.streams
  obtain ⟨_, _, again, follows⟩ := run_ends calls created.live.valid
  rw [run] at again
  cases again
  have framing := (through.live.framed channel (List.mem_of_getElem? found) framer streams).framing
  rw [follows.state] at framing
  refine ⟨⟨_, framing, (through.delivered channel framer found streams).batch⟩,
    fun event member => ?_⟩
  obtain ⟨_, _, _, _, -, -, ran, -⟩ := trace.step member
  exact call_shown ran

/-- The letter `P`, the value and the end of the line. -/
def lineTemplate : JsonValue :=
  .obj [("segments", .arr [
    .obj [("kind", .str "literal"), ("text", .str "P")],
    .obj [("kind", .str "field"), ("field_id", .str "value")],
    .obj [("kind", .str "literal"), ("text", .str "\r\n")]])]

/-- A stream of lines of one message. -/
def lineDocument : JsonValue :=
  .obj [("schema_version", .str "0.11"), ("protocol_id", .str "lines"),
    ("protocol_version", .str "1"), ("display_name", .str "lines"), ("source_ref", .str "manual"),
    ("resource_profile", .str "desktop"),
    ("framing_profiles", .arr [labelled "line" [("input_kind", .str "stream_chunk"),
      ("strategy", .str "ascii_crlf"), ("terminator_text", .str "\r\n"),
      ("maximum_frame_length", .raw "8")]]),
    ("pipelines", .arr [labelled "lines" [("direction_id", .str "both"),
      ("input_framing_profile_id", .str "line"), ("message_ids", .arr [.str "ping"])]]),
    ("messages", .arr [labelled "ping" [("direction_id", .str "both"),
      ("layout", .obj [("kind", .str "text"), ("encoding", .str "ascii"),
        ("decode", lineTemplate), ("encode", lineTemplate)]),
      ("fields", .arr [labelled "value" [("value_type", .str "BYTES"),
        ("wire", .obj [("codec", .str "ascii_text"), ("min_byte_length", .raw "1"),
          ("max_byte_length", .raw "4")]),
        ("encode", .obj [("source", .str "input")])]])]])]

/-- A host that decodes a stream of lines. -/
def lineHost : Option HostEndpoint :=
  (compileJsonToPlanWithMetadata { pingEnvironment with read := fun _ => .ok lineDocument }
    maxUint64 []).toOption.bind fun state =>
      (createHostEndpoint pingSizes readyAllocator 7 (some state) [{ endpointKey := [1] }] {}).bind
        (·.host)

/-- A line and the start of another one. -/
def lineCall : HostCall Unit where
  request := .push ⟨7, 0, 1, true⟩ ⟨some 1048576, [80, 49, 13, 10, 80]⟩
  callbacks := { sink := some fun _ memory _ _ => (.returned .continue, memory) }
  memory := ()

/-- A line is delivered, and the start of the other one is held. -/
theorem stream_delivered_lines : ∃ (host last : HostEndpoint) (outcomes : List (HostOutcome Unit))
    (framer : StreamFramer),
    host.Created [{ endpointKey := [1] }] ∧ host.run [lineCall] = some (outcomes, last) ∧
    ((([lineCall].zip outcomes).foldl (Traffic.after 0) {}).frames = [[80, 49, 13, 10]]) ∧
    ∃ framing, streamFraming host.state.plan framer.pipelineIndex = some framing ∧
      (([lineCall].zip outcomes).foldl (Traffic.after 0) {}).frames <+:
        batchSplit framing (([lineCall].zip outcomes).foldl (Traffic.after 0) {}).consumed := by
  have facts : (lineHost.bind fun host => (host.run [lineCall]).map fun ended =>
      ((ended.2.channels[0]?.bind (·.framer)).isSome,
        (([lineCall].zip ended.1).foldl (Traffic.after 0) {}).frames)) =
          some (true, [[80, 49, 13, 10]]) := by
    decide +kernel
  obtain ⟨host, made, facts⟩ := Option.bind_eq_some_iff.mp facts
  obtain ⟨⟨outcomes, last⟩, run, facts⟩ := Option.map_eq_some_iff.mp facts
  obtain ⟨streams, frames⟩ := Prod.mk.inj facts
  obtain ⟨framer, streams⟩ := Option.isSome_iff_exists.mp streams
  obtain ⟨channel, found, streams⟩ := Option.bind_eq_some_iff.mp streams
  unfold lineHost at made
  have created : host.Created [{ endpointKey := [1] }] := .of_option made
  obtain ⟨⟨framing, profile, within, -⟩, -⟩ := stream_delivered created run found streams
  exact ⟨host, last, outcomes, framer, created, run, frames, framing, profile, within⟩

end

end

end ProtocolAdapter.PublicApi
